/-
# What stands in a document

An element has its attributes and its content to tell what it declares: the first attribute of a
name that is in no namespace counts, and of the content the text that it begins with.

A part of a document has a place: the numbers of the parts to be taken on the way down to it.
Places are ordered as words are, so an element comes before what stands in it, and that before
what stands behind the element.  This is document order.

* `HasElements` says which elements of a name there are, and in which order, by their places
  alone.
* The parts of a document from the top down are listed with their places in this order
  (`pairwise_located`), and every place is listed once with what stands there
  (`mem_located_iff`).  So the elements of a name that are found are those that there are, in
  document order (`hasElements_iff`).
-/
import Concolic.Xml.Node
import Mathlib.Data.List.Pairwise
import Mathlib.Order.Basic
import Mathlib.Data.List.Lex

namespace Concolic.Xml.Node

/-! ## What an element says -/

/-- The element has the attribute: the first one of the name without a namespace has the value. -/
def HasAttribute (n : Node) (key value : String) : Prop :=
  ∃ name front back children, n = .element name (front ++ ⟨none, key, value⟩ :: back) children ∧
    ∀ a ∈ front, ¬ (a.space = none ∧ a.name = key)

section

variable {n : Node} {key value text : String}

lemma attribute?_eq_some_iff : n.attribute? key = some value ↔ n.HasAttribute key value := by
  rcases n with ⟨name, attributes, children⟩ | characters | _
  · rw [attribute?, Option.map_eq_some_iff]
    constructor
    · rintro ⟨⟨space, name', value'⟩, hfind, rfl⟩
      obtain ⟨hkey, front, back, rfl, hfront⟩ := List.find?_eq_some_iff_append.mp hfind
      obtain ⟨rfl, rfl⟩ : space = none ∧ name' = key := by simpa using hkey
      refine ⟨name, front, back, children, rfl, fun a ha => ?_⟩
      simpa [imp_iff_not_or] using hfront a ha
    · rintro ⟨name', front, back, children', heq, hfront⟩
      obtain ⟨-, rfl, -⟩ := Node.element.inj heq
      refine ⟨⟨none, key, value⟩, List.find?_eq_some_iff_append.mpr ⟨by simp, front, back, rfl, ?_⟩,
        rfl⟩
      intro a ha
      simpa [imp_iff_not_or] using hfront a ha
  · simp [attribute?, HasAttribute]
  · simp [attribute?, HasAttribute]

lemma attribute?_eq_none_iff : n.attribute? key = none ↔ ∀ value, ¬ n.HasAttribute key value := by
  simp only [← attribute?_eq_some_iff, Option.eq_none_iff_forall_ne_some, ne_eq]

lemma leadingText?_eq_some_iff : n.leadingText? = some text ↔
    ∃ name attributes content, n = .element name attributes (.text text :: content) := by
  constructor
  · intro h
    rcases n with ⟨name, attributes, children⟩ | characters | _
    · rcases children with _ | ⟨_ | characters | _, content⟩
      · exact nomatch h
      · exact nomatch h
      · obtain rfl : characters = text := Option.some.inj h
        exact ⟨name, attributes, content, rfl⟩
      · exact nomatch h
    · exact nomatch h
    · exact nomatch h
  · rintro ⟨name, attributes, content, rfl⟩
    rfl

end

/-! ## Places -/

/-- The parts right in an element. -/
def children : Node → List Node
  | .element _ _ children => children
  | .text _ => []
  | .aside => []

/-- What stands at a place: each number says which part to take on the way down. -/
def partAt? : Node → List Nat → Option Node
  | n, [] => some n
  | n, i :: place => n.children[i]?.bind fun child => child.partAt? place

/-- These are the elements of the name in the document, in the order of their places. -/
def HasElements (root : Node) (tag : String) (elements : List Node) : Prop :=
  ∃ located : List (List Nat × Node),
    (∀ place n, (place, n) ∈ located ↔ root.partAt? place = some n ∧
      ∃ attributes children, n = .element tag attributes children) ∧
    located.Pairwise (·.1 < ·.1) ∧ elements = located.map Prod.snd

variable {root n : Node} {tag : String} {l elements elements' : List Node} {place : List Nat}

/-- Every part comes about from those that stand right in it. -/
lemma induction {motive : Node → Prop}
    (element : ∀ name attributes children, (∀ child ∈ children, motive child) →
      motive (.element name attributes children))
    (text : ∀ characters, motive (.text characters)) (aside : motive .aside) (n : Node) :
    motive n :=
  @Node.rec motive (fun l => ∀ n ∈ l, motive n) element text aside
    nofun (fun _ _ hn hl => List.forall_mem_cons.mpr ⟨hn, hl⟩) n

/-! ## Parts with their places -/

mutual

/-- The parts of a document from this one down, each with its place. -/
def located : Node → List (List Nat × Node)
  | .element name attributes children =>
    ([], .element name attributes children) :: locatedFrom 0 children
  | .text characters => [([], .text characters)]
  | .aside => [([], .aside)]

/-- The parts from several ones down, which are numbered from `i` on. -/
def locatedFrom (i : Nat) : List Node → List (List Nat × Node)
  | [] => []
  | n :: rest => (located n).map (fun x => (i :: x.1, x.2)) ++ locatedFrom (i + 1) rest

end

lemma map_snd_locatedFrom (h : ∀ n ∈ l, n.located.map Prod.snd = n.descendants) (i : Nat) :
    (locatedFrom i l).map Prod.snd = descendantsOf l := by
  induction l generalizing i with
  | nil => rfl
  | cons n l ih =>
    obtain ⟨hn, hl⟩ := List.forall_mem_cons.mp h
    rw [locatedFrom, descendantsOf, List.map_append, List.map_map, ih hl (i + 1), ← hn]
    rfl

/-- They are the parts in the order in which they are listed. -/
lemma map_snd_located (n : Node) : n.located.map Prod.snd = n.descendants := by
  induction n using Node.induction with
  | element name attributes children ih =>
    rw [located, descendants, List.map_cons, map_snd_locatedFrom ih 0]
  | text characters => rfl
  | aside => rfl

/-- What is listed from several parts down stands at places that begin with their numbers. -/
lemma mem_locatedFrom_iff
    (h : ∀ n ∈ l, ∀ place x, (place, x) ∈ n.located ↔ n.partAt? place = some x)
    (i : Nat) {x : Node} : (place, x) ∈ locatedFrom i l ↔
      ∃ j rest n, place = (i + j) :: rest ∧ l[j]? = some n ∧ n.partAt? rest = some x := by
  induction l generalizing i with
  | nil => simp [locatedFrom]
  | cons n l ih =>
    obtain ⟨hn, hl⟩ := List.forall_mem_cons.mp h
    rw [locatedFrom, List.mem_append, ih hl (i + 1)]
    constructor
    · rintro (hfirst | ⟨j, rest, n', rfl, hj, hrest⟩)
      · obtain ⟨⟨rest, x'⟩, hmem, heq⟩ := List.mem_map.mp hfirst
        obtain ⟨rfl, rfl⟩ := Prod.mk.inj heq
        exact ⟨0, rest, n, rfl, rfl, (hn rest x').mp hmem⟩
      · exact ⟨j + 1, rest, n', by rw [Nat.add_right_comm, Nat.add_assoc], hj, hrest⟩
    · rintro ⟨j, rest, n', rfl, hj, hrest⟩
      cases j with
      | zero =>
        obtain rfl : n = n' := Option.some.inj hj
        exact .inl (List.mem_map.mpr ⟨(rest, x), (hn rest x).mpr hrest, rfl⟩)
      | succ j => exact .inr ⟨j, rest, n', by rw [Nat.add_right_comm, Nat.add_assoc], hj, hrest⟩

/-- Listed at a place is what stands there. -/
lemma mem_located_iff (n : Node) :
    ∀ place x, (place, x) ∈ n.located ↔ n.partAt? place = some x := by
  induction n using Node.induction with
  | element name attributes children ih =>
    intro place x
    rw [located, List.mem_cons, mem_locatedFrom_iff ih 0]
    cases place with
    | nil => simp [partAt?, eq_comm]
    | cons i place => simp [partAt?, Node.children, Option.bind_eq_some_iff]
  | text characters =>
    intro place x
    cases place <;> simp [located, partAt?, Node.children, eq_comm]
  | aside =>
    intro place x
    cases place <;> simp [located, partAt?, Node.children, eq_comm]

/-- The places of what is listed from several parts down begin with the number of the first of them
or a larger one. -/
lemma exists_of_mem_locatedFrom {i : Nat} {x : List Nat × Node} (hx : x ∈ locatedFrom i l) :
    ∃ j rest, x.1 = (i + j) :: rest := by
  obtain ⟨place, n⟩ := x
  obtain ⟨j, rest, -, hplace, -⟩ := (mem_locatedFrom_iff (fun n _ => mem_located_iff n) i).mp hx
  exact ⟨j, rest, hplace⟩

lemma pairwise_locatedFrom (h : ∀ n ∈ l, n.located.Pairwise (·.1 < ·.1)) (i : Nat) :
    (locatedFrom i l).Pairwise (·.1 < ·.1) := by
  induction l generalizing i with
  | nil => exact .nil
  | cons n l ih =>
    obtain ⟨hn, hl⟩ := List.forall_mem_cons.mp h
    rw [locatedFrom, List.pairwise_append]
    refine ⟨?_, ih hl (i + 1), ?_⟩
    · exact List.pairwise_map.mpr (hn.imp fun hlt => List.cons_lt_cons_iff.mpr (.inr ⟨rfl, hlt⟩))
    · -- the places behind begin with a larger number
      intro x hx x' hx'
      obtain ⟨y, -, rfl⟩ := List.mem_map.mp hx
      obtain ⟨j, rest, hplace⟩ := exists_of_mem_locatedFrom hx'
      rw [hplace]
      exact List.cons_lt_cons_iff.mpr (.inl (by omega))

/-- The listing is in the order of places. -/
lemma pairwise_located (n : Node) : n.located.Pairwise (·.1 < ·.1) := by
  induction n using Node.induction with
  | element name attributes children ih =>
    rw [located, List.pairwise_cons]
    refine ⟨?_, pairwise_locatedFrom ih 0⟩
    intro x hx
    obtain ⟨j, rest, hplace⟩ := exists_of_mem_locatedFrom hx
    rw [hplace]
    exact List.nil_lt_cons _ _
  | text characters => exact List.pairwise_singleton _ _
  | aside => exact List.pairwise_singleton _ _

/-! ## The elements of a name -/

lemma isNamed_eq_true_iff : n.isNamed tag = true ↔
    ∃ attributes children, n = .element tag attributes children := by
  cases n with
  | element name attributes children => simp [isNamed, eq_comm]
  | text characters => simp [isNamed]
  | aside => simp [isNamed]

lemma hasElements_elements (root : Node) (tag : String) :
    root.HasElements tag (root.elements tag) := by
  refine ⟨root.located.filter fun x => x.2.isNamed tag, ?_, (pairwise_located root).filter _, ?_⟩
  · intro place n
    rw [List.mem_filter, mem_located_iff, isNamed_eq_true_iff]
  · rw [elements, ← map_snd_located, List.filter_map]
    rfl

lemma HasElements.exists_eq (h : root.HasElements tag elements) :
    ∀ n ∈ elements, ∃ attributes children, n = .element tag attributes children := by
  obtain ⟨located, hmem, -, rfl⟩ := h
  rintro n hn
  obtain ⟨⟨place, n⟩, hlocated, rfl⟩ := List.mem_map.mp hn
  exact ((hmem place n).mp hlocated).2

/-- A document has its elements in one order only. -/
lemma HasElements.unique (h : root.HasElements tag elements)
    (h' : root.HasElements tag elements') : elements = elements' := by
  obtain ⟨located, hmem, hsorted, rfl⟩ := h
  obtain ⟨located', hmem', hsorted', rfl⟩ := h'
  have hne : ∀ {x y : List Nat × Node}, x.1 < y.1 → x ≠ y := by
    rintro x y hlt rfl
    exact lt_irrefl _ hlt
  have hperm : located.Perm located' :=
    (List.perm_ext_iff_of_nodup (hsorted.imp hne) (hsorted'.imp hne)).mpr
      fun x => (hmem x.1 x.2).trans (hmem' x.1 x.2).symm
  rw [List.Perm.eq_of_pairwise (fun _ _ _ _ hlt hgt => absurd hgt (lt_asymm hlt))
    hsorted hsorted' hperm]

/-- **The elements of a name that are found are those that there are, in document order.** -/
lemma hasElements_iff : root.HasElements tag elements ↔ elements = root.elements tag := by
  constructor
  · exact fun h => h.unique (hasElements_elements root tag)
  · rintro rfl
    exact hasElements_elements root tag

end Concolic.Xml.Node
