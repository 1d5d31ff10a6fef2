/-
# Documents that differ in one attribute

An attribute of a single element is given another value, wherever in the tree the element stands.
Of all other elements nothing changes that can be asked of them alone: their names, their
attributes and the texts with which they begin.  Only the subtrees below the elements that the
changed one stands in are different.  So the elements of any name correspond to each other one by
one and in the same order, and all pairs but one are alike.
-/
import Concolic.Xml.Node
import Mathlib.Data.List.Forall2

namespace Concolic.Xml.Node

/-! ## Equal documents -/

mutual

/-- Whether two parts of a document are equal is decided part by part. -/
def decEq : (n n' : Node) → Decidable (n = n')
  | .element name attributes children, .element name' attributes' children' =>
    have := decEqAll children children'
    decidable_of_iff (name = name' ∧ attributes = attributes' ∧ children = children') (by simp)
  | .text characters, .text characters' => decidable_of_iff (characters = characters') (by simp)
  | .aside, .aside => isTrue rfl
  | .element .., .text _ => isFalse nofun
  | .element .., .aside => isFalse nofun
  | .text _, .element .. => isFalse nofun
  | .text _, .aside => isFalse nofun
  | .aside, .element .. => isFalse nofun
  | .aside, .text _ => isFalse nofun

/-- So it is for several parts. -/
def decEqAll : (l l' : List Node) → Decidable (l = l')
  | [], [] => isTrue rfl
  | n :: l, n' :: l' =>
    have := decEq n n'
    have := decEqAll l l'
    decidable_of_iff (n = n' ∧ l = l') (by simp)
  | [], _ :: _ => isFalse nofun
  | _ :: _, [] => isFalse nofun

end

instance : DecidableEq Node := decEq

/-! ## One attribute -/

/-- The trees are the same but for one attribute of one element: where the first has `raw`, the
second has `raw'`. -/
inductive Varies (tag key raw raw' : String) : Node → Node → Prop
  /-- The attribute is one of the element at the top, the first one of its name. -/
  | here {front back : List Attribute} {children : List Node}
      (first : ∀ a ∈ front, ¬ (a.space = none ∧ a.name = key)) :
      Varies tag key raw raw' (.element tag (front ++ ⟨none, key, raw⟩ :: back) children)
        (.element tag (front ++ ⟨none, key, raw'⟩ :: back) children)
  /-- The attribute is somewhere in one of the parts of the element at the top. -/
  | inside {name : String} {attributes : List Attribute} {front back : List Node} {n n' : Node}
      (varies : Varies tag key raw raw' n n') :
      Varies tag key raw raw' (.element name attributes (front ++ n :: back))
        (.element name attributes (front ++ n' :: back))

/-- Nothing tells the two parts apart but what stands in them. -/
structure Alike (n n' : Node) : Prop where
  /-- They have the same name. -/
  isNamed : ∀ tag, n.isNamed tag = n'.isNamed tag
  /-- They have the same attributes. -/
  attribute? : ∀ key, n.attribute? key = n'.attribute? key
  /-- They begin with the same text. -/
  leadingText? : n.leadingText? = n'.leadingText?

/-- Elements of the same name that have all but one attribute in common. -/
structure Changed (tag key raw raw' : String) (n n' : Node) : Prop where
  /-- The first one has the name. -/
  isNamed : ∀ other, n.isNamed other = decide (tag = other)
  /-- So has the second one. -/
  isNamed' : ∀ other, n'.isNamed other = decide (tag = other)
  /-- The attribute of the first one. -/
  reads : n.attribute? key = some raw
  /-- The attribute of the second one. -/
  reads' : n'.attribute? key = some raw'
  /-- The other attributes. -/
  others : ∀ other, other ≠ key → n.attribute? other = n'.attribute? other

variable {tag key raw raw' : String} {root root' : Node}

/-! ## Corresponding elements -/

lemma Alike.refl (n : Node) : n.Alike n := ⟨fun _ => rfl, fun _ => rfl, rfl⟩

lemma forall₂_alike_refl (l : List Node) : List.Forall₂ Alike l l :=
  List.forall₂_same.mpr fun n _ => Alike.refl n

lemma descendantsOf_append (l l' : List Node) :
    descendantsOf (l ++ l') = descendantsOf l ++ descendantsOf l' := by
  induction l with
  | nil => rfl
  | cons n l ih => rw [List.cons_append, descendantsOf, ih, descendantsOf, List.append_assoc]

/-- What varies is an element, in which no text stands for the whole. -/
lemma Varies.exists_element (h : Varies tag key raw raw' root root') :
    (∃ name attributes children, root = .element name attributes children) ∧
      ∃ name attributes children, root' = .element name attributes children := by
  cases h with
  | here => exact ⟨⟨_, _, _, rfl⟩, _, _, _, rfl⟩
  | inside => exact ⟨⟨_, _, _, rfl⟩, _, _, _, rfl⟩

lemma changed_here {front back : List Attribute} {children : List Node}
    (first : ∀ a ∈ front, ¬ (a.space = none ∧ a.name = key)) :
    Changed tag key raw raw' (.element tag (front ++ ⟨none, key, raw⟩ :: back) children)
      (.element tag (front ++ ⟨none, key, raw'⟩ :: back) children) := by
  have hfront : front.find? (fun a => a.space = none && a.name = key) = none := by
    rw [List.find?_eq_none]
    intro a ha
    simpa using first a ha
  refine ⟨fun _ => rfl, fun _ => rfl, ?_, ?_, fun other hother => ?_⟩
  · simp [attribute?, List.find?_append, hfront]
  · simp [attribute?, List.find?_append, hfront]
  · simp [attribute?, List.find?_append, Ne.symm hother]

/-- An element above the one that varies has its own name, attributes and text. -/
lemma alike_above {name : String} {attributes : List Attribute} {front back : List Node}
    {n n' : Node} (h : Varies tag key raw raw' n n') :
    Alike (.element name attributes (front ++ n :: back))
      (.element name attributes (front ++ n' :: back)) := by
  refine ⟨fun _ => rfl, fun _ => rfl, ?_⟩
  obtain ⟨⟨_, _, _, rfl⟩, _, _, _, rfl⟩ := h.exists_element
  rcases front with _ | ⟨first, front⟩
  · rfl
  · cases first <;> rfl

/-- The parts of the trees correspond to each other, and all but one are alike. -/
lemma Varies.descendants (h : Varies tag key raw raw' root root') :
    ∃ l n r l' n' r', root.descendants = l ++ n :: r ∧ root'.descendants = l' ++ n' :: r' ∧
      List.Forall₂ Alike l l' ∧ List.Forall₂ Alike r r' ∧ Changed tag key raw raw' n n' := by
  induction h with
  | here first =>
    exact ⟨[], _, _, [], _, _, rfl, rfl, .nil, forall₂_alike_refl _, changed_here first⟩
  | @inside name attributes front back n n' h ih =>
    obtain ⟨l, x, r, l', x', r', hn, hn', hl, hr, hchanged⟩ := ih
    refine ⟨.element name attributes (front ++ n :: back) :: descendantsOf front ++ l, x,
      r ++ descendantsOf back,
      .element name attributes (front ++ n' :: back) :: descendantsOf front ++ l', x',
      r' ++ descendantsOf back, ?_, ?_, ?_, ?_, hchanged⟩
    · simp [Node.descendants, descendantsOf_append, descendantsOf, hn]
    · simp [Node.descendants, descendantsOf_append, descendantsOf, hn']
    · exact List.rel_append (.cons (alike_above h) (forall₂_alike_refl _)) hl
    · exact List.rel_append hr (forall₂_alike_refl _)

lemma forall₂_filter_isNamed {l l' : List Node} (h : List.Forall₂ Alike l l') (tag : String) :
    List.Forall₂ Alike (l.filter (isNamed tag)) (l'.filter (isNamed tag)) :=
  List.rel_filter (fun _ _ halike => by simp only [halike.isNamed tag]) h

/-- Of the elements of its name, all but the changed one are alike. -/
lemma Varies.elements (h : Varies tag key raw raw' root root') :
    ∃ l n r l' n' r', root.elements tag = l ++ n :: r ∧ root'.elements tag = l' ++ n' :: r' ∧
      List.Forall₂ Alike l l' ∧ List.Forall₂ Alike r r' ∧ Changed tag key raw raw' n n' := by
  obtain ⟨l, n, r, l', n', r', hroot, hroot', hl, hr, hchanged⟩ := h.descendants
  have hn : n.isNamed tag = true := by simp [hchanged.isNamed]
  have hn' : n'.isNamed tag = true := by simp [hchanged.isNamed']
  refine ⟨_, n, _, _, n', _, ?_, ?_, forall₂_filter_isNamed hl tag, forall₂_filter_isNamed hr tag,
    hchanged⟩
  · rw [Node.elements, hroot, List.filter_append, List.filter_cons_of_pos hn]
  · rw [Node.elements, hroot', List.filter_append, List.filter_cons_of_pos hn']

/-- The elements of another name are all alike. -/
lemma Varies.elements_of_ne (h : Varies tag key raw raw' root root') {other : String}
    (hne : tag ≠ other) : List.Forall₂ Alike (root.elements other) (root'.elements other) := by
  obtain ⟨l, n, r, l', n', r', hroot, hroot', hl, hr, hchanged⟩ := h.descendants
  have hn : ¬ n.isNamed other = true := by simp [hchanged.isNamed, hne]
  have hn' : ¬ n'.isNamed other = true := by simp [hchanged.isNamed', hne]
  rw [Node.elements, Node.elements, hroot, hroot', List.filter_append, List.filter_append,
    List.filter_cons_of_neg hn, List.filter_cons_of_neg hn']
  exact List.rel_append (forall₂_filter_isNamed hl other) (forall₂_filter_isNamed hr other)

end Concolic.Xml.Node
