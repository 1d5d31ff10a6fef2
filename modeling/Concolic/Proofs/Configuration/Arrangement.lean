/-
# Documents in another arrangement

Two documents say the same if the same text names the program and the elements that declare
inputs have the same attributes, arguments in any order.  Neither where the elements stand in the
tree nor what else there is counts.

* Elements with the same attributes declare the same inputs, so trees that say the same declare
  the same inputs, arguments in another order (`SaysTheSame.declared`).
* A configuration has its arguments by their positions, in whatever order they are declared
  (`Configures.perm`).  So both trees are accepted with one configuration, or neither is.
* With the arguments in the same order, the reader takes the same steps on both trees, also those
  that fail (`SaysTheSame.ofTree_eq`).
-/
import Concolic.Proofs.Configuration.Loading
import Concolic.Proofs.Xml.Variation
import Mathlib.Data.List.Perm.Basic

namespace Concolic.Configuration

open Xml (Node)

/-- The attributes of elements: of each one, the value under every key. -/
def attributesOf (elements : List Node) : List (String → Option String) :=
  elements.map Node.attribute?

/-- The elements of the name in the one tree are related to those in the other, both taken in
document order. -/
def ElementsRelate (root root' : Node) (tag : String) (R : List Node → List Node → Prop) : Prop :=
  ∃ elements elements', root.HasElements tag elements ∧ root'.HasElements tag elements' ∧
    R elements elements'

/-- The elements of the name have the same attributes one by one. -/
def SameAttributes (root root' : Node) (tag : String) : Prop :=
  ElementsRelate root root' tag fun l l' => attributesOf l = attributesOf l'

/-- The trees name the program by the same text and declare inputs by the same attributes; only
the arguments may come in another order. -/
structure SaysTheSame (root root' : Node) : Prop where
  program : ElementsRelate root root' "exec" fun l l' => programText? l = programText? l'
  arguments : ElementsRelate root root' "arg" fun l l' => (attributesOf l).Perm (attributesOf l')
  files : SameAttributes root root' "file"
  standardInput : SameAttributes root root' "stdin"

variable {isFile : Path → Bool} {root root' n n' : Node} {c : Configuration} {program : String}
  {arguments arguments' : List Argument} {files : List InputFile} {standardInput : Option Nat}
  {tag : String} {l l' : List Node}

lemma elementsRelate_iff {R : List Node → List Node → Prop} :
    ElementsRelate root root' tag R ↔ R (root.elements tag) (root'.elements tag) := by
  simp [ElementsRelate, Node.hasElements_iff]

lemma sameAttributes_iff : SameAttributes root root' tag ↔
    attributesOf (root.elements tag) = attributesOf (root'.elements tag) :=
  elementsRelate_iff

/-! ## Elements with the same attributes -/

lemma DeclaresArgument.congr (n n' : Node) (a : Argument) (h : n.attribute? = n'.attribute?)
    (hn : DeclaresArgument n a) : DeclaresArgument n' a := by
  have hread : argumentOf n' = .ok (.argument a) :=
    (argumentOf_congr h).symm.trans (argumentOf_eq_ok_iff.mpr ⟨a, rfl, hn⟩)
  obtain ⟨a', ha', hn'⟩ := argumentOf_eq_ok_iff.mp hread
  obtain rfl := Input.argument.inj ha'
  exact hn'

lemma DeclaresFile.congr (n n' : Node) (f : InputFile) (h : n.attribute? = n'.attribute?)
    (hn : DeclaresFile n f) : DeclaresFile n' f := by
  have hread : fileOf n' = .ok (.file f) :=
    (fileOf_congr h).symm.trans (fileOf_eq_ok_iff.mpr ⟨f, rfl, hn⟩)
  obtain ⟨f', hf', hn'⟩ := fileOf_eq_ok_iff.mp hread
  obtain rfl := Input.file.inj hf'
  exact hn'

lemma DeclaresStandardInput.congr (n n' : Node) (size : Nat) (h : n.attribute? = n'.attribute?)
    (hn : DeclaresStandardInput n size) : DeclaresStandardInput n' size where
  counts := by
    rw [counts_iff, ← h]
    exact counts_iff.mp hn.counts
  marked := by
    rw [says_iff, ← h]
    exact says_iff.mp hn.marked
  narrow := hn.narrow

/-- What elements say by their attributes is said of the attributes. -/
lemma forall₂_attributesOf_iff {β : Type} {R : Node → β → Prop} {values : List β}
    (hR : ∀ n n' b, n.attribute? = n'.attribute? → R n b → R n' b) :
    List.Forall₂ R l values ↔
      List.Forall₂ (fun attributes b => ∃ n : Node, n.attribute? = attributes ∧ R n b)
        (attributesOf l) values := by
  rw [attributesOf, List.forall₂_map_left_iff]
  constructor
  · intro h
    exact h.imp fun n b hn => ⟨n, rfl, hn⟩
  · intro h
    refine h.imp ?_
    rintro n' b ⟨n, hattributes, hn⟩
    -- `n` need not be one of the elements
    exact hR n n' b hattributes hn

/-- Elements in another order say the same in another order. -/
lemma exists_perm_forall₂ {β : Type} {R : Node → β → Prop} {values : List β}
    (hR : ∀ n n' b, n.attribute? = n'.attribute? → R n b → R n' b)
    (h : (attributesOf l).Perm (attributesOf l')) (hvalues : List.Forall₂ R l values) :
    ∃ values', List.Forall₂ R l' values' ∧ values'.Perm values := by
  obtain ⟨values', hvalues', hperm⟩ :=
    List.perm_comp_forall₂ h.symm ((forall₂_attributesOf_iff hR).mp hvalues)
  exact ⟨values', (forall₂_attributesOf_iff hR).mpr hvalues', hperm⟩

/-- Elements correspond to each other if their attributes do. -/
lemma forall₂_of_attributesOf (h : attributesOf l = attributesOf l') :
    List.Forall₂ (fun n n' => n.attribute? = n'.attribute?) l l' := by
  rw [attributesOf, attributesOf, ← List.forall₂_eq_eq_eq] at h
  exact List.forall₂_map_right_iff.mp (List.forall₂_map_left_iff.mp h)

lemma declareStandardInput_congr
    (h : List.Forall₂ (fun n n' => n.attribute? = n'.attribute?) l l') :
    declareStandardInput c l = declareStandardInput c l' := by
  match h with
  | .nil => rfl
  | .cons hn .nil => rw [declareStandardInput, declareStandardInput, standardInputOf_congr hn]
  | .cons _ (.cons _ hrest) =>
    simp only [declareStandardInput, List.length_cons, hrest.length_eq]

lemma DeclareAtMostOne.congr (hattributes : attributesOf l = attributesOf l')
    (h : DeclareAtMostOne l standardInput) : DeclareAtMostOne l' standardInput := by
  obtain ⟨rfl, hwidth⟩ | ⟨n, size, rfl, hsize, hwidth⟩ := h
  · exact .inl ⟨List.map_eq_nil_iff.mp hattributes.symm, hwidth⟩
  · obtain ⟨n', rfl, hn'⟩ := List.map_eq_singleton_iff.mp hattributes.symm
    exact .inr ⟨n', size, rfl, .congr n n' size hn'.symm hsize, hwidth⟩

/-! ## Trees that say the same -/

namespace SaysTheSame

lemma symm (h : SaysTheSame root root') : SaysTheSame root' root where
  program := elementsRelate_iff.mpr (elementsRelate_iff.mp h.program).symm
  arguments := elementsRelate_iff.mpr (elementsRelate_iff.mp h.arguments).symm
  files := sameAttributes_iff.mpr (sameAttributes_iff.mp h.files).symm
  standardInput := sameAttributes_iff.mpr (sameAttributes_iff.mp h.standardInput).symm

lemma executableOf_eq (h : SaysTheSame root root') : executableOf root = executableOf root' :=
  executableOf_congr (elementsRelate_iff.mp h.program)

/-- The program has the same name in both trees. -/
lemma named (h : SaysTheSame root root') (hgiven : program ≠ "")
    (hnamed : NamesProgram root program) : NamesProgram root' program := by
  have hread : executableOf root' = .ok (.ofString program) :=
    h.executableOf_eq.symm.trans (executableOf_eq_ok_iff.mpr ⟨program, hnamed, hgiven, rfl⟩)
  obtain ⟨program', hnamed', -, heq⟩ := executableOf_eq_ok_iff.mp hread
  -- only paths have been compared so far, but a path shows the text that it is made of
  have hprogram : program = program' := by
    rw [← display_ofString program, heq, display_ofString]
  rw [hprogram]
  exact hnamed'

/-- The trees declare the same inputs, but for the order of the arguments. -/
lemma declared (h : SaysTheSame root root')
    (hroot : Declared isFile root program arguments files standardInput) :
    ∃ arguments', Declared isFile root' program arguments' files standardInput ∧
      arguments'.Perm arguments := by
  obtain ⟨arguments', hargs, hperm⟩ := exists_perm_forall₂ DeclaresArgument.congr
    (elementsRelate_iff.mp h.arguments) (allDeclare_iff.mp hroot.argumentElements)
  have hfiles : List.Forall₂ DeclaresFile (root'.elements "file") files := by
    have hattributes := (forall₂_attributesOf_iff DeclaresFile.congr).mp
      (allDeclare_iff.mp hroot.fileElements)
    rw [sameAttributes_iff.mp h.files] at hattributes
    exact (forall₂_attributesOf_iff DeclaresFile.congr).mpr hattributes
  -- no position is taken twice, in whatever order they are taken
  have hpositions : (arguments'.map Argument.index).Nodup :=
    (hperm.map Argument.index).nodup_iff.mpr hroot.positions
  obtain ⟨elements, helements, hstd⟩ := hroot.standardInputElement
  rw [Node.hasElements_iff.mp helements] at hstd
  exact ⟨arguments', ⟨h.named hroot.given hroot.named, hroot.given, hroot.found,
    allDeclare_iff.mpr hargs, hpositions, allDeclare_iff.mpr hfiles, hroot.paths,
    _, root'.hasElements_elements "stdin", hstd.congr (sameAttributes_iff.mp h.standardInput)⟩,
    hperm⟩

end SaysTheSame

/-- The order in which arguments are declared does not show in a configuration. -/
lemma Configures.perm (h : c.Configures program arguments files standardInput)
    (hperm : arguments.Perm arguments') : c.Configures program arguments' files standardInput := by
  obtain ⟨others, hothers, hargs, hsorted⟩ := h.arguments
  exact { h with arguments := ⟨others, hothers, hargs.trans hperm, hsorted⟩ }

namespace SaysTheSame

/-- What one tree is accepted with, the other one is too. -/
lemma ofTree_eq_ok (h : SaysTheSame root root') (hroot : (ofTree isFile root).result = .ok c) :
    (ofTree isFile root').result = .ok c := by
  obtain ⟨program, arguments, files, standardInput, hdeclared, hc⟩ :=
    ofTree_eq_ok_iff_configures.mp hroot
  obtain ⟨arguments', hdeclared', hperm⟩ := h.declared hdeclared
  exact ofTree_eq_ok_iff_configures.mpr
    ⟨program, arguments', files, standardInput, hdeclared', hc.perm hperm.symm⟩

/-- On trees with their arguments in the same order, the reader does the same step by step. -/
lemma ofTree_eq (h : SaysTheSame root root')
    (hordered : SameAttributes root root' "arg") :
    ofTree isFile root = ofTree isFile root' := by
  have hall : ∀ executable, declareAll executable root = declareAll executable root' := by
    intro executable
    have hargs : (root.elements "arg").foldlM declareArgument (new executable)
        = (root'.elements "arg").foldlM declareArgument (new executable) :=
      Traced.foldlM_congr declareArgument_congr
        (forall₂_of_attributesOf (sameAttributes_iff.mp hordered)) _
    have hfiles : ∀ c, (root.elements "file").foldlM declareFile c
        = (root'.elements "file").foldlM declareFile c :=
      Traced.foldlM_congr declareFile_congr
        (forall₂_of_attributesOf (sameAttributes_iff.mp h.files))
    have hstd : ∀ c, declareStandardInput c (root.elements "stdin")
        = declareStandardInput c (root'.elements "stdin") :=
      fun _ => declareStandardInput_congr
        (forall₂_of_attributesOf (sameAttributes_iff.mp h.standardInput))
    simp only [declareAll, hargs, hfiles, hstd]
  simp only [ofTree, h.executableOf_eq, hall]

end SaysTheSame

/-- **The arrangement of a document does not count.**  Let two well-formed documents say the same:
their first `exec` elements begin with the same text, their `file` and their `stdin` elements have
the same attributes in document order, and so have their `arg` elements up to a permutation.
Whichever regular files there are, the loader accepts the one with a configuration exactly if it
accepts the other with this configuration.  If also the `arg` elements come in the same order, the
loader does the same for both, with the same result, be it an error, and the same events. -/
theorem ofDocument_arrangement {isFile : Path → Bool} {document document' : String}
    {root root' : Node} (hroot : treeOf document = .ok root) (hroot' : treeOf document' = .ok root')
    (hsame : SaysTheSame root root') :
    (∀ c, (ofDocument isFile document).result = .ok c ↔
      (ofDocument isFile document').result = .ok c) ∧
    (SameAttributes root root' "arg" →
      ofDocument isFile document = ofDocument isFile document') := by
  constructor
  · intro c
    rw [ofDocument_of_treeOf hroot, ofDocument_of_treeOf hroot']
    exact ⟨hsame.ofTree_eq_ok, hsame.symm.ofTree_eq_ok⟩
  · intro hordered
    rw [ofDocument, ofDocument, hroot, hroot']
    exact hsame.ofTree_eq hordered

/-! ### Flat and nested -/

/-- Two arguments with these positions, a file and the standard input side by side. -/
def flatDocument (index index' : String) : String :=
  "<c><exec><![CDATA[/t]]></exec><arg index=\"" ++ index ++ "\"/><arg index=\"" ++ index'
    ++ "\"/><file path=\"/a\" size=\"1\" concolic=\"true\"/>"
    ++ "<stdin size=\"2\" concolic=\"true\"/></c>"

/-- The same in groups and inside each other, with a foreign element in between. -/
def nestedDocument (index index' : String) : String :=
  "<d><stdin size=\"2\" concolic=\"true\"/><file path=\"/a\" size=\"1\" concolic=\"true\">"
    ++ "<arg index=\"" ++ index ++ "\"/></file><e><f/><arg index=\"" ++ index'
    ++ "\"/></e><exec><![CDATA[/t]]></exec></d>"

/-- The element for an argument. -/
def positionElement (index : String) : Node := .element "arg" [⟨none, "index", index⟩] []

/-- The element for the file, with others in it. -/
def fileElement (inside : List Node) : Node :=
  .element "file" [⟨none, "path", "/a"⟩, ⟨none, "size", "1"⟩, ⟨none, "concolic", "true"⟩] inside

/-- The element for the standard input. -/
def standardInputElement : Node :=
  .element "stdin" [⟨none, "size", "2"⟩, ⟨none, "concolic", "true"⟩] []

/-- The tree of the flat document. -/
def flatTree (index index' : String) : Node :=
  .element "c" [] [.element "exec" [] [.text "/t"], positionElement index, positionElement index',
    fileElement [], standardInputElement]

/-- The tree of the nested document. -/
def nestedTree (index index' : String) : Node :=
  .element "d" [] [standardInputElement, fileElement [positionElement index],
    .element "e" [] [.element "f" [] [], positionElement index'],
    .element "exec" [] [.text "/t"]]

/-- The arguments may be declared in one order or the other. -/
lemma saysTheSame_nestedTree (index index' : String) :
    SaysTheSame (flatTree index index') (nestedTree index index') ∧
      SaysTheSame (flatTree index index') (nestedTree index' index) := by
  constructor
  · exact ⟨elementsRelate_iff.mpr rfl, elementsRelate_iff.mpr (.refl _),
      sameAttributes_iff.mpr rfl, sameAttributes_iff.mpr rfl⟩
  · exact ⟨elementsRelate_iff.mpr rfl, elementsRelate_iff.mpr (.swap _ _ _),
      sameAttributes_iff.mpr rfl, sameAttributes_iff.mpr rfl⟩

/-- With the arguments the other way round, the nested document is loaded as the flat one is.  If
the program is not there, the nested document is refused as the flat one is. -/
theorem ofDocument_arrangement_sample :
    (∃ c, (ofDocument (fun _ => true) (flatDocument "1" "2")).result = .ok c ∧
      (ofDocument (fun _ => true) (nestedDocument "2" "1")).result = .ok c) ∧
    (ofDocument (fun _ => false) (nestedDocument "1" "2")).result
      = .error (.notFound .executable (.ofString "/t")) ∧
    ofDocument (fun _ => false) (flatDocument "1" "2")
      = ofDocument (fun _ => false) (nestedDocument "1" "2") := by
  have hflat : treeOf (flatDocument "1" "2") = .ok (flatTree "1" "2") := by decide +kernel
  have hnested : treeOf (nestedDocument "1" "2") = .ok (nestedTree "1" "2") := by decide +kernel
  have hnested' : treeOf (nestedDocument "2" "1") = .ok (nestedTree "2" "1") := by decide +kernel
  obtain ⟨hsame, hsame'⟩ := saysTheSame_nestedTree "1" "2"
  refine ⟨?_, ?_, ?_⟩
  · have hok : (ofTree (fun _ => true) (flatTree "1" "2")).result = .ok
        ⟨.ofString "/t", [programArgument "/t", .concrete 1 [] 0, .concrete 2 [] 0], [⟨"/a", 1⟩],
          some 2⟩ := by decide +kernel
    rw [← ofDocument_of_treeOf hflat] at hok
    exact ⟨_, hok, ((ofDocument_arrangement hflat hnested' hsame').1 _).mp hok⟩
  · rw [ofDocument_of_treeOf hnested]
    decide +kernel
  · exact (ofDocument_arrangement hflat hnested hsame).2 (sameAttributes_iff.mpr rfl)

end Concolic.Configuration
